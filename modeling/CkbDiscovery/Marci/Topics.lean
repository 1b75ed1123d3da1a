import CkbDiscovery.Marci.Status
import CkbDiscovery.Marci.Traces

/-! Reports by the dialers and reports by others arrive on topics of their own;
which of them the online records stem from. -/

namespace CkbDiscovery.Marci

open Effect Redis

variable {config : Config} {serde : Serde} {before after : State} {trace : HandlerTrace}

/-- What the loop takes up: a published text, with its topic, or a tick. -/
inductive Incoming where
  | published (topic payload : String)
  | tick
  deriving DecidableEq

/-- What a published text is parsed to; its topic is forgotten then. -/
def Incoming.message (serde : Serde) : Incoming → Option Message
  | .published topic payload => subscribed serde topic payload
  | .tick => some .tick

def handleIncoming (config : Config) (serde : Serde) (incoming : Incoming) : Handler Unit :=
  match incoming.message serde with
  | some message => handle config serde message
  | none => pure ()

abbrev IncomingTurn := Turn State MarciCall.Reply Incoming

abbrev IncomingRun (config : Config) (serde : Serde) : State → List IncomingTurn → State → Prop :=
  Run world (handleIncoming config serde)

/-- The report was published on the topic and parsed. -/
def ReportedOn (serde : Serde) (topic : String) (peer : PeerInfo) (turn : IncomingTurn) : Prop :=
  ∃ payload, turn.message = .published topic payload ∧ serde.peerInfo.fromStr payload = some peer

/-- No report by others stores a first-hand record, and no report by a dialer
writes an external one. -/
structure Separated (turn : IncomingTurn) : Prop where
  external : ∀ payload, turn.message = .published "peer/online2" payload → ∀ peerId,
    ∀ event ∈ turn.trace, event.question.stores ≠ some (KeyFormat.onlinePeer.key peerId)
  firstHand : ∀ payload, turn.message = .published "peer/online" payload → ∀ peerId,
    ∀ event ∈ turn.trace, event.question.writes ≠ some (KeyFormat.online2Peer.key peerId)

/-- The flag in the payload is not that of the topic. -/
def Mislabelled (serde : Serde) (peer : PeerInfo) (turn : IncomingTurn) : Prop :=
  ReportedOn serde "peer/online2" peer turn ∧ peer.isEx = false ∨
    ReportedOn serde "peer/online" peer turn ∧ peer.isEx = true

/-- Wherever the flag is wrong, the peer is found to be online already. -/
def Labelled (serde : Serde) (turn : IncomingTurn) : Prop :=
  ∀ peer, Mislabelled serde peer turn → ∀ event ∈ turn.trace,
    event.question = .redis (.get (KeyFormat.onlinePeer.key peer.info.peerId)) →
      event.before.redis.Live (KeyFormat.onlinePeer.key peer.info.peerId)

/-- No record of the format is created or given another value. -/
def KeepsValues (format : KeyFormat) (before after : Store) : Prop :=
  ∀ peerId entry, after.find? (format.key peerId) = some entry →
    ∃ old, before.find? (format.key peerId) = some old ∧ old.value = entry.value

/-- The value was stored for a report of the peer on the topic. -/
def StemsFrom (serde : Serde) (topic : String) (key peerId : String) (value : Value)
    (turns : List IncomingTurn) : Prop :=
  ∃ turn ∈ turns, ∃ peer, ReportedOn serde topic peer turn ∧ peer.info.peerId = peerId ∧
    value = .text peer.version ∧ ∃ event ∈ turn.trace, event.question.stores = some key

/-- Online records of either kind stem from the topic of that kind. -/
structure Attributed (serde : Serde) (turns : List IncomingTurn) (store : Store) : Prop where
  online : ∀ peerId entry, store.find? (KeyFormat.onlinePeer.key peerId) = some entry →
    StemsFrom serde "peer/online" (KeyFormat.onlinePeer.key peerId) peerId entry.value turns
  online2 : ∀ peerId entry, store.find? (KeyFormat.online2Peer.key peerId) = some entry →
    StemsFrom serde "peer/online2" (KeyFormat.online2Peer.key peerId) peerId entry.value turns

/-- The record a report of a peer that is not online goes to. -/
def reportTarget (peer : PeerInfo) : KeyFormat := if peer.isEx then .online2Peer else .onlinePeer

/-- A command that stores an online record, and whose it is. -/
def StoresReport (config : Config) (message : Message) (format : KeyFormat) (peerId : String)
    (question : MarciCall) : Prop :=
  ∃ peer, message = .online peer ∧ peer.info.peerId = peerId ∧ reportTarget peer = format ∧
    question = .redis (.setEx (format.key peerId) peer.version config.ckbNodeDefaultTimeout.toNat)

def onlineFormats : List KeyFormat := [.onlinePeer, .online2Peer]

/-- What is not written by the rest of a handler is not stored by it either. -/
theorem OnlyWrites.stores_nothing {broadcasts : Bool} {formats : List KeyFormat} {subject peerId : String}
    {handler : Handler α} {format : KeyFormat} {allowed : MarciCall → Prop}
    (only : OnlyWrites broadcasts formats subject handler) (outside : format ∉ formats) :
    handler.Within fun question => question.stores = some (format.key peerId) → allowed question :=
  only.implies format peerId (.inl outside) fun _ unwritten stored =>
    absurd (MarciCall.writes_of_stores stored) unwritten

theorem markOnline_stores (peer : PeerInfo) (format : KeyFormat) (peerId : String) :
    (markOnline config peer).Within fun question => question.stores = some (format.key peerId) →
      StoresReport config (.online peer) format peerId question := by
  refine (within_getString nofun).andThen fun reply => ?_
  cases reply with
  | ok version =>
    refine Program.Within.andThen ?_ fun seconds => (within_command nofun).andThen fun _ => trivial
    unfold tryIntoI64
    split <;> trivial
  | error _ =>
    by_cases external : peer.isEx = true
    · rw [if_pos external]
      refine within_command fun stored => ?_
      obtain ⟨rfl, rfl⟩ := KeyFormat.key_eq_key.mp (Option.some.inj stored)
      exact ⟨peer, rfl, rfl, if_pos external, rfl⟩
    · rw [if_neg external]
      refine within_command fun stored => ?_
      obtain ⟨rfl, rfl⟩ := KeyFormat.key_eq_key.mp (Option.some.inj stored)
      exact ⟨peer, rfl, rfl, if_neg external, rfl⟩

/-- Only online reports store online records, each the one its flag names. -/
theorem handle_stores (message : Message) {format : KeyFormat} (member : format ∈ onlineFormats)
    (peerId : String) :
    (handle config serde message).Within fun question => question.stores = some (format.key peerId) →
      StoresReport config message format peerId question := by
  cases message with
  | online peer =>
    have located : format ∉ .onlineIp :: locationFormats := by
      revert member format
      decide
    have settled : format ∉ [.peerFull, .peerSeen, .unknownPeer] := by
      revert member format
      decide
    exact (markOnline_stores peer format peerId).andThen fun _ =>
      ((onlyWrites_locateOnline peer).stores_nothing located).andThen fun _ =>
      (onlyWrites_settleOnline peer).stores_nothing settled
  | unknown peer =>
    refine Program.Within.mono (handleUnknown_stores peer) fun question stores stored => ?_
    rcases stores _ stored with mark | seen
    · obtain ⟨rfl, _⟩ := KeyFormat.key_eq_key.mp mark
      exact absurd member (by decide)
    · obtain ⟨rfl, _⟩ := KeyFormat.key_eq_key.mp seen
      exact absurd member (by decide)
  | reachable peer =>
    apply OnlyWrites.stores_nothing (onlyWrites_handle (.reachable peer))
    intro inside
    rcases List.mem_pair.mp member with rfl | rfl <;> simp [Message.formats] at inside
  | tick => exact OnlyWrites.stores_nothing (onlyWrites_handle .tick) List.not_mem_nil

/-- Whatever writes the external record stores it. -/
theorem handle_writes_online2 (message : Message) (peerId : String) :
    (handle config serde message).Within fun question =>
      question.writes = some (KeyFormat.online2Peer.key peerId) →
        question.stores = some (KeyFormat.online2Peer.key peerId) := by
  have elsewhere : ∀ question : MarciCall, question.writes ≠ some (KeyFormat.online2Peer.key peerId) →
      question.writes = some (KeyFormat.online2Peer.key peerId) →
        question.stores = some (KeyFormat.online2Peer.key peerId) :=
    fun _ unwritten written => absurd written unwritten
  cases message with
  | online peer =>
    refine Program.Within.andThen ((within_getString nofun).andThen fun reply => ?_) fun _ => ?_
    · cases reply with
      | ok version => exact (onlyWrites_expireOnline _).implies _ _ (.inl (by decide)) elsewhere
      | error _ =>
        by_cases external : peer.isEx = true
        · rw [if_pos external]
          exact within_command id
        · rw [if_neg external]
          exact within_command id
    · exact ((onlyWrites_locateOnline peer).implies _ _ (.inl (by decide)) elsewhere).andThen fun _ =>
        (onlyWrites_settleOnline peer).implies _ _ (.inl (by decide)) elsewhere
  | unknown peer => exact (onlyWrites_handle (.unknown peer)).implies _ _ (.inl (by simp [Message.formats])) elsewhere
  | reachable peer =>
    exact (onlyWrites_handle (.reachable peer)).implies _ _ (.inl (by simp [Message.formats])) elsewhere
  | tick => exact (onlyWrites_handle .tick).implies _ _ (.inl List.not_mem_nil) elsewhere

/-- Renewing a record neither reads nor stores anything. -/
theorem expireOnline_within (key : String) :
    (expireOnline config key).Within fun question =>
      question.stores = none ∧ ∀ other, question ≠ .redis (.get other) := by
  refine Program.Within.andThen ?_ fun seconds => (within_command ⟨rfl, nofun⟩).andThen fun _ => trivial
  unfold tryIntoI64
  split <;> trivial

/-- Nothing is stored unless the online record has been found missing. -/
theorem markOnline_reached {peer : PeerInfo} {event : Event State MarciCall.Reply}
    (reaches : Reaches world before (markOnline config peer) trace after) (member : event ∈ trace)
    (stored : event.question.stores ≠ none) :
    ∃ read ∈ trace, read.question = .redis (.get (KeyFormat.onlinePeer.key peer.info.peerId)) ∧
      ¬ read.before.redis.Live (KeyFormat.onlinePeer.key peer.info.peerId) := by
  change Reaches world before (.ask (MarciCall.redis (.get (KeyFormat.onlinePeer.key peer.info.peerId))) _)
    trace after at reaches
  cases reaches with
  | here _ => cases member
  | ask quiet answered rest =>
    cases answered with
    | redis executed =>
      rename_i value
      obtain ⟨_, read, missing⟩ := execute_get executed
      refine ⟨_, List.mem_cons_self, rfl, fun live => ?_⟩
      cases value with
      | none => exact Store.not_live_iff.mpr (missing.mp rfl) live
      | some version =>
        rcases List.mem_cons.mp member with rfl | further
        · exact stored rfl
        · exact stored (Reaches.permitted (expireOnline_within _) rest event further).1

/-- A finished marking that found the record missing has stored one. -/
theorem markOnline_completed {peer : PeerInfo} {read : Event State MarciCall.Reply}
    (completes : HandlerCompletes before (markOnline config peer) trace after ()) (member : read ∈ trace)
    (missed : ¬ read.before.redis.Live (KeyFormat.onlinePeer.key peer.info.peerId))
    (asked : read.question = .redis (.get (KeyFormat.onlinePeer.key peer.info.peerId))) :
    ∃ event ∈ trace, event.question.stores = some ((reportTarget peer).key peer.info.peerId) := by
  obtain ⟨first, middle, reply, rest, looked, branch, rfl⟩ := Completes.split completes
  obtain ⟨met, answer, rfl, _, _, outcome⟩ := HandlerCompletes.getString looked
  cases reply with
  | ok version =>
    exfalso
    rcases List.mem_append.mp member with here | later
    · obtain rfl := List.mem_singleton.mp here
      obtain ⟨entry, found⟩ := Store.found_of_text? outcome
      exact missed (Store.live_iff.mpr ⟨_, found⟩)
    · exact (Reaches.permitted (expireOnline_within _) branch.reaches read later).2 _ asked
  | error _ =>
    by_cases external : peer.isEx = true
    · rw [if_pos external] at branch
      obtain ⟨sent, rfl, _⟩ := HandlerCompletes.command branch
      refine ⟨_, List.mem_append_right _ List.mem_cons_self, ?_⟩
      rw [reportTarget, if_pos external]
      rfl
    · rw [if_neg external] at branch
      obtain ⟨sent, rfl, _⟩ := HandlerCompletes.command branch
      refine ⟨_, List.mem_append_right _ List.mem_cons_self, ?_⟩
      rw [reportTarget, if_neg external]
      rfl

/-- A handler about other records neither stores nor looks for one. -/
theorem Touches.apart {locates : Bool} {formats : List KeyFormat} {subject peerId : String}
    {handler : Handler α} {format : KeyFormat} (touches : Touches locates formats subject handler)
    (outside : format ∉ formats) :
    handler.Within fun question =>
      question.stores ≠ some (format.key peerId) ∧ question ≠ .redis (.get (format.key peerId)) := by
  refine Program.Within.mono touches fun question about => ?_
  cases question with
  | redis command =>
    obtain ⟨known, member, touched⟩ := about
    have other : command.touches ≠ some (format.key peerId) := by
      intro same
      obtain ⟨rfl, _⟩ := KeyFormat.key_eq_key.mp (Option.some.inj (touched.symm.trans same))
      exact outside member
    constructor
    · intro stored
      exact other (Command.touches_of_writes (MarciCall.writes_of_stores stored))
    · intro looked
      cases looked
      exact other rfl
  | _ => exact ⟨nofun, nofun⟩

theorem locateOnline_apart (peer : PeerInfo) {format : KeyFormat} (member : format ∈ onlineFormats)
    (peerId : String) :
    (do locateOnline config serde peer; settleOnline config peer : Handler Unit).Within fun question =>
      question.stores ≠ some (format.key peerId) ∧ question ≠ .redis (.get (format.key peerId)) := by
  have outside : format ∉ .onlineIp :: locationFormats ∧ format ∉ [.peerFull, .peerSeen, .unknownPeer] := by
    revert member format
    decide
  have settles : Touches false [.peerFull, .peerSeen, .unknownPeer] peer.info.peerId (settleOnline config peer) :=
    touches_settleOnline peer
  exact ((touches_locateOnline peer).apart outside.1).andThen fun _ => settles.apart outside.2

/-- Where an online record is stored, the first-hand one of the same peer has
been found missing. -/
theorem handle_reached {message : Message} {format : KeyFormat} (known : format ∈ onlineFormats)
    {peerId : String} {event : Event State MarciCall.Reply}
    (reaches : Reaches world before (handle config serde message) trace after) (member : event ∈ trace)
    (stored : event.question.stores = some (format.key peerId)) :
    ∃ peer, message = .online peer ∧ peer.info.peerId = peerId ∧ reportTarget peer = format ∧
      event.question = .redis (.setEx (format.key peerId) peer.version config.ckbNodeDefaultTimeout.toNat) ∧
      ∃ read ∈ trace, read.question = .redis (.get (KeyFormat.onlinePeer.key peerId)) ∧
        ¬ read.before.redis.Live (KeyFormat.onlinePeer.key peerId) := by
  obtain ⟨peer, rfl, rfl, target, asked⟩ :=
    Reaches.permitted (handle_stores message known peerId) reaches event member stored
  refine ⟨peer, rfl, rfl, target, asked, ?_⟩
  have storing : event.question.stores ≠ none := by
    rw [stored]
    exact Option.some_ne_none _
  rcases Reaches.split reaches with inside | ⟨first, _, _, rest, marked, others, rfl⟩
  · exact markOnline_reached inside member storing
  · rcases List.mem_append.mp member with here | later
    · obtain ⟨read, present, missed⟩ := markOnline_reached marked.reaches here storing
      exact ⟨read, List.mem_append_left _ present, missed⟩
    · exact absurd stored (Reaches.permitted (locateOnline_apart peer known _) others event later).1

/-- A finished report that found the first-hand record missing has stored one. -/
theorem handle_completed {peer : PeerInfo} {read : Event State MarciCall.Reply}
    (completes : HandlerCompletes before (handle config serde (.online peer)) trace after ())
    (member : read ∈ trace)
    (asked : read.question = .redis (.get (KeyFormat.onlinePeer.key peer.info.peerId)))
    (missed : ¬ read.before.redis.Live (KeyFormat.onlinePeer.key peer.info.peerId)) :
    ∃ event ∈ trace, event.question.stores = some ((reportTarget peer).key peer.info.peerId) := by
  obtain ⟨first, _, _, rest, marked, others, rfl⟩ := Completes.split completes
  rcases List.mem_append.mp member with here | later
  · obtain ⟨event, present, stored⟩ := markOnline_completed marked here missed asked
    exact ⟨event, List.mem_append_left _ present, stored⟩
  · exact absurd asked (Reaches.permitted (locateOnline_apart peer List.mem_cons_self _) others.reaches
      read later).2

/-- What a report has placed is its version. -/
theorem placed_version {key version : String} {seconds : Nat} {value : Value}
    {event : Event State MarciCall.Reply} (placed : Placed key value event)
    (asked : event.question = .redis (.setEx key version seconds)) : value = .text version := by
  obtain ⟨_, replied, entry, answered, found, rfl⟩ := placed
  obtain ⟨met, question, reply⟩ := event
  obtain rfl : question = .redis (.setEx key version seconds) := asked
  cases answered with
  | redis executed => rw [Option.some.inj (found.symm.trans (execute_setEx executed).2)]

/-- An online record after a run carries the version of a report of its peer. -/
theorem run_online_record {format : KeyFormat} (known : format ∈ onlineFormats) {turns : List MarciTurn}
    (run : MarciRun config serde (.initial now) turns after) :
    ∀ peerId entry, after.redis.find? (format.key peerId) = some entry →
      ∃ turn ∈ turns, ∃ peer, turn.message = .online peer ∧ peer.info.peerId = peerId ∧
        reportTarget peer = format ∧ entry.value = .text peer.version := by
  apply run.keeps (fun turns state => ∀ peerId entry, state.redis.find? (format.key peerId) = some entry →
    ∃ turn ∈ turns, ∃ peer, turn.message = .online peer ∧ peer.info.peerId = peerId ∧
      reportTarget peer = format ∧ entry.value = .text peer.version)
  · intro peerId entry found
    simp [State.initial] at found
  · intro turns before message trace after _ recorded completes peerId entry found
    rcases value_along completes.reaches.path found with ⟨old, held, same⟩ | ⟨event, member, placed⟩
    · obtain ⟨turn, member, peer, message, about, target, version⟩ := recorded peerId old held
      exact ⟨turn, List.mem_cons_of_mem _ member, peer, message, about, target, same ▸ version⟩
    · obtain ⟨peer, rfl, about, target, asked, _⟩ := handle_reached known completes.reaches member placed.1
      exact ⟨_, List.mem_cons_self, peer, rfl, about, target, placed_version placed asked⟩

section Incoming

variable {incoming : Incoming} {turns : List IncomingTurn}

/-- A text that is not taken up leads to no calls at all. -/
theorem handleIncoming_reached {event : Event State MarciCall.Reply}
    (reaches : Reaches world before (handleIncoming config serde incoming) trace after)
    (member : event ∈ trace) : ∃ message, incoming.message serde = some message ∧
      Reaches world before (handle config serde message) trace after := by
  unfold handleIncoming at reaches
  cases parsed : incoming.message serde with
  | some message =>
    rw [parsed] at reaches
    exact ⟨message, rfl, reaches⟩
  | none =>
    rw [parsed] at reaches
    cases reaches with
    | here _ => cases member

/-- Online reports come from the two topics of online reports. -/
theorem message_online {peer : PeerInfo} (parsed : incoming.message serde = some (.online peer)) :
    ∃ topic payload, incoming = .published topic payload ∧ serde.peerInfo.fromStr payload = some peer ∧
      (topic = "peer/online" ∨ topic = "peer/online2") := by
  cases incoming with
  | tick => cases parsed
  | published topic payload =>
    refine ⟨topic, payload, rfl, ?_⟩
    change subscribed serde topic payload = some (.online peer) at parsed
    unfold subscribed at parsed
    split at parsed
    · obtain ⟨read, found, same⟩ := Option.map_eq_some_iff.mp parsed
      cases same
      exact ⟨found, .inl rfl⟩
    · obtain ⟨read, found, same⟩ := Option.map_eq_some_iff.mp parsed
      cases same
      exact ⟨found, .inr rfl⟩
    · obtain ⟨read, _, same⟩ := Option.map_eq_some_iff.mp parsed
      cases same
    · obtain ⟨read, _, same⟩ := Option.map_eq_some_iff.mp parsed
      cases same
    · cases parsed

/-- A report with the flag of its topic stores its own record only. -/
theorem separated_of_labelled
    (reaches : Reaches world before (handleIncoming config serde incoming) trace after)
    (labelled : Labelled serde ⟨incoming, trace⟩) : Separated ⟨incoming, trace⟩ := by
  constructor
  · intro payload arrived peerId event member stored
    obtain ⟨message, parsed, handled⟩ := handleIncoming_reached reaches member
    obtain ⟨peer, rfl, rfl, target, _, read, present, looked, missed⟩ :=
      handle_reached List.mem_cons_self handled member stored
    obtain ⟨topic, text, same, found, _⟩ := message_online parsed
    have external : peer.isEx = false := by
      cases flag : peer.isEx with
      | false => rfl
      | true =>
        rw [reportTarget, if_pos flag] at target
        cases target
    cases arrived.symm.trans same
    exact missed (labelled peer (.inl ⟨⟨payload, arrived, found⟩, external⟩) read present looked)
  · intro payload arrived peerId event member written
    obtain ⟨message, parsed, handled⟩ := handleIncoming_reached reaches member
    have stored := Reaches.permitted (handle_writes_online2 message peerId) handled event member written
    obtain ⟨peer, rfl, rfl, target, _, read, present, looked, missed⟩ :=
      handle_reached (by decide) handled member stored
    obtain ⟨topic, text, same, found, _⟩ := message_online parsed
    have external : peer.isEx = true := by
      by_contra firstHand
      rw [reportTarget, if_neg firstHand] at target
      cases target
    cases arrived.symm.trans same
    exact missed (labelled peer (.inr ⟨⟨payload, arrived, found⟩, external⟩) read present looked)

theorem labelled_of_separated
    (completes : HandlerCompletes before (handleIncoming config serde incoming) trace after ())
    (separated : Separated ⟨incoming, trace⟩) : Labelled serde ⟨incoming, trace⟩ := by
  intro peer mislabelled read member asked
  by_contra missed
  rcases mislabelled with ⟨⟨payload, arrived, found⟩, external⟩ | ⟨⟨payload, arrived, found⟩, external⟩
  · obtain rfl : incoming = .published "peer/online2" payload := arrived
    have parsed : Incoming.message serde (.published "peer/online2" payload) = some (.online peer) := by
      simp [Incoming.message, subscribed, found]
    rw [handleIncoming, parsed] at completes
    obtain ⟨event, present, stored⟩ := handle_completed completes member asked missed
    rw [reportTarget, external, if_neg Bool.false_ne_true] at stored
    exact separated.external payload rfl _ event present stored
  · obtain rfl : incoming = .published "peer/online" payload := arrived
    have parsed : Incoming.message serde (.published "peer/online" payload) = some (.online peer) := by
      simp [Incoming.message, subscribed, found]
    rw [handleIncoming, parsed] at completes
    obtain ⟨event, present, stored⟩ := handle_completed completes member asked missed
    rw [reportTarget, if_pos external] at stored
    exact separated.firstHand payload rfl _ event present (MarciCall.writes_of_stores stored)

/-- An online record after a turn was there before, or a report of the peer has
placed it. -/
theorem record_reached {format : KeyFormat} (known : format ∈ onlineFormats) {peerId : String} {entry : Entry}
    (reaches : Reaches world before (handleIncoming config serde incoming) trace after)
    (found : after.redis.find? (format.key peerId) = some entry) :
    (∃ old, before.redis.find? (format.key peerId) = some old ∧ old.value = entry.value) ∨
      ∃ topic, (topic = "peer/online" ∨ topic = "peer/online2") ∧
        StemsFrom serde topic (format.key peerId) peerId entry.value [⟨incoming, trace⟩] := by
  rcases value_along reaches.path found with old | ⟨event, member, placed⟩
  · exact .inl old
  · right
    obtain ⟨message, parsed, handled⟩ := handleIncoming_reached reaches member
    obtain ⟨peer, rfl, rfl, _, asked, _⟩ := handle_reached known handled member placed.1
    obtain ⟨topic, payload, arrived, read, online⟩ := message_online parsed
    exact ⟨topic, online, _, List.mem_cons_self, peer, ⟨payload, arrived, read⟩, rfl,
      placed_version placed asked, event, member, placed.1⟩

theorem StemsFrom.mono {topic key peerId : String} {value : Value} {earlier later : List IncomingTurn}
    (stems : StemsFrom serde topic key peerId value earlier) (included : earlier ⊆ later) :
    StemsFrom serde topic key peerId value later := by
  obtain ⟨turn, member, report⟩ := stems
  exact ⟨turn, included member, report⟩

theorem Attributed.reached (attributed : Attributed serde turns before.redis)
    (reaches : Reaches world before (handleIncoming config serde incoming) trace after)
    (separated : Separated ⟨incoming, trace⟩) :
    Attributed serde (⟨incoming, trace⟩ :: turns) after.redis := by
  have latest : [⟨incoming, trace⟩] ⊆ ⟨incoming, trace⟩ :: turns := by simp
  have earlier : turns ⊆ ⟨incoming, trace⟩ :: turns := List.subset_cons_self _ _
  constructor
  · intro peerId entry found
    rcases record_reached List.mem_cons_self reaches found with ⟨old, held, same⟩ | ⟨topic, rfl | rfl, stems⟩
    · rw [← same]
      exact (attributed.online peerId old held).mono earlier
    · exact stems.mono latest
    · obtain ⟨turn, member, peer, ⟨payload, arrived, _⟩, _, _, event, present, stored⟩ := stems
      obtain rfl := List.mem_singleton.mp member
      exact absurd stored (separated.external payload arrived peerId event present)
  · intro peerId entry found
    rcases record_reached (by decide) reaches found with ⟨old, held, same⟩ | ⟨topic, rfl | rfl, stems⟩
    · rw [← same]
      exact (attributed.online2 peerId old held).mono earlier
    · obtain ⟨turn, member, peer, ⟨payload, arrived, _⟩, _, _, event, present, stored⟩ := stems
      obtain rfl := List.mem_singleton.mp member
      exact absurd (MarciCall.writes_of_stores stored)
        (separated.firstHand payload arrived peerId event present)
    · exact stems.mono latest

/-- A report by others that stores no first-hand record leaves them all as they were. -/
theorem Separated.keepsValues {payload : String}
    (separated : Separated ⟨.published "peer/online2" payload, trace⟩)
    (path : Path world before trace after) : KeepsValues .onlinePeer before.redis after.redis := by
  intro peerId entry found
  rcases value_along path found with old | ⟨event, member, stored, _⟩
  · exact old
  · exact absurd stored (separated.external payload rfl peerId event member)

/-- As long as the two kinds of records are kept apart, each stems from its topic. -/
theorem run_attributed (run : IncomingRun config serde (.initial now) turns after)
    (separated : ∀ turn ∈ turns, Separated turn) : Attributed serde turns after.redis := by
  induction run with
  | start =>
    constructor <;>
    · intro peerId entry found
      cases found
  | turn _ completes inductionHypothesis =>
    obtain ⟨latest, others⟩ := List.forall_mem_cons.mp separated
    exact (inductionHypothesis others).reached completes.reaches latest

theorem run_separated_iff (run : IncomingRun config serde (.initial now) turns after) :
    (∀ turn ∈ turns, Separated turn) ↔ ∀ turn ∈ turns, Labelled serde turn := by
  induction run with
  | start => simp
  | turn _ completes inductionHypothesis =>
    rw [List.forall_mem_cons, List.forall_mem_cons, inductionHypothesis]
    apply and_congr_left'
    exact ⟨labelled_of_separated completes, separated_of_labelled completes.reaches⟩

/-- After every run, and anywhere in a turn after it: the completed turns have
kept the two kinds of records apart exactly if every report carried the flag of
its topic or found the peer online already; and if the current one does too,
then it keeps them apart, and every online record stems from its own topic. -/
theorem topics_apart (run : IncomingRun config serde (.initial now) turns before)
    (reaches : Reaches world before (handleIncoming config serde incoming) trace after) :
    ((∀ turn ∈ turns, Separated turn) ↔ ∀ turn ∈ turns, Labelled serde turn) ∧
      ((∀ turn ∈ turns, Labelled serde turn) → Labelled serde ⟨incoming, trace⟩ →
        Separated ⟨incoming, trace⟩ ∧
          (∀ payload, incoming = .published "peer/online2" payload →
            KeepsValues .onlinePeer before.redis after.redis) ∧
          Attributed serde (⟨incoming, trace⟩ :: turns) after.redis) := by
  refine ⟨run_separated_iff run, fun labelled current => ?_⟩
  have separated : Separated ⟨incoming, trace⟩ := separated_of_labelled reaches current
  refine ⟨separated, ?_, (run_attributed run ((run_separated_iff run).mpr labelled)).reached reaches separated⟩
  rintro payload rfl
  exact separated.keepsValues reaches.path

end Incoming

/-- A report without the flag, which then counts as first-hand, and one with it. -/
def plainReport : PeerInfo := ⟨⟨"Qm", [], .mirana⟩, "0.1", false, false⟩

def plainText : String :=
  "\x7b\"info\":\x7b\"peer_id\":\"Qm\",\"addresses\":[],\"network\":\"Mirana\"\x7d,\"version\":\"0.1\"\x7d"

def externalReport : PeerInfo := { plainReport with isEx := true }

def externalText : String :=
  "\x7b\"info\":\x7b\"peer_id\":\"Qm\",\"addresses\":[],\"network\":\"Mirana\"\x7d,\"version\":\"0.1\",\"is_ex\":true\x7d"

def reportSerde : Serde :=
  { Serde.unary with peerInfo := .table [(plainReport, plainText), (externalReport, externalText)] }

/-- Texts replayed from an empty store. -/
def replayIncoming (script : List (Nat × Incoming)) : Option (List IncomingTurn × State) :=
  replayLoop (respond sampleSurroundings) State.wait (handleIncoming sampleConfig reportSerde) script
    (.initial 0)

theorem replayIncoming_run {script : List (Nat × Incoming)} {turns : List IncomingTurn} {after : State}
    (replayed : replayIncoming script = some (turns, after)) :
    IncomingRun sampleConfig reportSerde (.initial 0) turns after :=
  Run.of_replay (respond_faithful sampleSurroundings) wait_drifts replayed

/-- A report on the topic for others that leaves the flag out creates a
first-hand record. -/
theorem external_report_stored : ∃ turns after,
    IncomingRun sampleConfig reportSerde (.initial 0) turns after ∧
      turns.map Turn.message = [.published "peer/online2" plainText] ∧
      (∃ turn ∈ turns, ¬ Separated turn) ∧
      after.redis.Live (KeyFormat.onlinePeer.key "Qm") := by
  have replayed : (replayIncoming [(0, .published "peer/online2" plainText)]).any fun result =>
      decide (result.1.map Turn.message = [.published "peer/online2" plainText] ∧
        (∃ turn ∈ result.1, ∃ event ∈ turn.trace,
          event.question.stores = some (KeyFormat.onlinePeer.key "Qm")) ∧
        result.2.redis.Live (KeyFormat.onlinePeer.key "Qm")) := by
    decide
  obtain ⟨⟨turns, after⟩, same, holds⟩ := (Option.any_eq_true _ _).mp replayed
  obtain ⟨messages, ⟨turn, member, event, present, stored⟩, live⟩ := of_decide_eq_true holds
  refine ⟨turns, after, replayIncoming_run same, messages, ⟨turn, member, fun separated => ?_⟩, live⟩
  have message : turn.message = .published "peer/online2" plainText := by
    have listed := List.mem_map_of_mem (f := Turn.message) member
    rw [messages] at listed
    exact List.mem_singleton.mp listed
  exact separated.external plainText message "Qm" event present stored

/-- A report of each kind on its own topic. -/
def labelledScript : List (Nat × Incoming) :=
  [(0, .published "peer/online2" externalText), (5, .published "peer/online" plainText)]

theorem topics_apart_labelled : ∃ turns after,
    IncomingRun sampleConfig reportSerde (.initial 0) turns after ∧
      after.redis.Live (KeyFormat.onlinePeer.key "Qm") ∧
      after.redis.Live (KeyFormat.online2Peer.key "Qm") ∧
      ∃ trace, Attributed reportSerde (⟨.tick, trace⟩ :: turns) after.redis := by
  have replayed : (replayIncoming labelledScript).any fun result =>
      decide (result.1.map Turn.message =
          [.published "peer/online" plainText, .published "peer/online2" externalText] ∧
        result.2.redis.Live (KeyFormat.onlinePeer.key "Qm") ∧
        result.2.redis.Live (KeyFormat.online2Peer.key "Qm")) := by
    decide
  obtain ⟨⟨turns, after⟩, same, holds⟩ := (Option.any_eq_true _ _).mp replayed
  obtain ⟨messages, online, online2⟩ := of_decide_eq_true holds
  have run := replayIncoming_run same
  have plain : reportSerde.peerInfo.fromStr plainText = some plainReport := by decide
  have external : reportSerde.peerInfo.fromStr externalText = some externalReport := by decide
  have labelled : ∀ turn ∈ turns, Labelled reportSerde turn := by
    intro turn member peer mislabelled
    have listed := List.mem_map_of_mem (f := Turn.message) member
    rw [messages] at listed
    rcases mislabelled with ⟨⟨payload, arrived, found⟩, flag⟩ | ⟨⟨payload, arrived, found⟩, flag⟩
    · rw [arrived] at listed
      obtain rfl : payload = externalText := by simpa using listed
      cases external.symm.trans found
      cases flag
    · rw [arrived] at listed
      obtain rfl : payload = plainText := by simpa using listed
      cases plain.symm.trans found
      cases flag
  have current : Labelled reportSerde ⟨.tick, []⟩ := by
    intro peer _ event member
    cases member
  exact ⟨turns, after, run, online, online2, [], ((topics_apart run (.here .refl)).2 labelled current).2.2⟩

end CkbDiscovery.Marci
