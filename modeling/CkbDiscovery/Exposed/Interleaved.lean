import CkbDiscovery.Effect.Ended
import CkbDiscovery.Exposed.Panics
import CkbDiscovery.Marci.Restart

/-! One call of the listing while Marci is at work: the commands of Marci's
handlers fall between its own, and keys expire all the while. -/

namespace CkbDiscovery.Exposed

open Effect Redis Marci Program

/-- Marci's state and what is left of the handler it is in, if any. -/
structure Concurrent where
  state : State
  pending : Marci.Handler Unit

/-- What may happen between two commands of the reader. -/
inductive Meanwhile (config : Config) (serde : Serde) : Concurrent → Concurrent → Prop where
  | lapse (drifts : StateDrifts state later) :
      Meanwhile config serde ⟨state, pending⟩ ⟨later, pending⟩
  | takeUp : Meanwhile config serde ⟨state, .done ()⟩ ⟨state, handle config serde message⟩
  | call (answered : Answers state question reply later) :
      Meanwhile config serde ⟨state, .ask question next⟩ ⟨later, next reply⟩
  | restart : Meanwhile config serde ⟨state, pending⟩ ⟨state.restart, .done ()⟩

/-- Every command of the reader is answered, and none with an error. -/
inductive ServerAnswers : Concurrent → (command : Command) → ReadReply command → Concurrent → Prop where
  | answer (executed : execute order moment.state.redis command = .ok (value, store)) :
      ServerAnswers moment command (.ok value) { moment with state := { moment.state with redis := store } }

def besideMarci (config : Config) (serde : Serde) : World Concurrent ReadReply :=
  ⟨ServerAnswers, Meanwhile config serde⟩

abbrev Reading := Event Concurrent ReadReply

variable {config : Config} {serde : Serde}

variable {F64 : Type} {formats : Formats F64} {statuses : Statuses} {peerId : String}
  {before : Concurrent} {trace : List Reading}

/-- The record of a peer that the reading asks for is still there, and the
second it asks for is one of the calendar. -/
structure Answerable (formats : Formats F64) (event : Reading) : Prop where
  standing : ∀ format ∈ [KeyFormat.onlinePeer, .online2Peer], ∀ peerId,
    event.question = .get (format.key peerId) → event.before.state.redis.Live (format.key peerId)
  dated : ∀ peerId, event.question = .get (KeyFormat.peerSeen.key peerId) →
    Dated formats event.before.state.redis peerId

theorem answerable_keys {event : Reading} (asked : event.question = .keys pattern) :
    Answerable formats event := by
  constructor
  · intro format _ peerId same
    rw [asked] at same
    cases same
  · intro peerId same
    rw [asked] at same
    cases same

theorem answerable_get {asked : Concurrent} {format : KeyFormat}
    {reply : ReadReply (.get (format.key peerId))} :
    Answerable formats ⟨asked, .get (format.key peerId), reply⟩ ↔
      (format ∈ [KeyFormat.onlinePeer, .online2Peer] →
        asked.state.redis.Live (format.key peerId)) ∧
      (format = .peerSeen → Dated formats asked.state.redis peerId) := by
  constructor
  · intro answerable
    refine ⟨fun status => answerable.standing format status peerId rfl, ?_⟩
    intro seen
    subst seen
    exact answerable.dated peerId rfl
  · intro given
    obtain ⟨standing, dated⟩ := given
    constructor
    · intro other status otherId same
      obtain ⟨rfl, rfl⟩ := KeyFormat.key_eq_key.mp (Command.get.inj same)
      exact standing status
    · intro otherId same
      obtain ⟨rfl, rfl⟩ := KeyFormat.key_eq_key.mp (Command.get.inj same)
      exact dated rfl

/-- A reading of one key, as the server answers it. -/
theorem ends_get {key : String} {outcome : Option (ReadReply (.get key))}
    (ends : Ends (besideMarci config serde) before (Client.send (.get key)) trace outcome) :
    ∃ asked : Concurrent, trace = [⟨asked, .get key, .ok (asked.state.redis.text? key)⟩] ∧
      outcome = some (.ok (asked.state.redis.text? key)) ∧
      (asked.state.redis.text? key = none ↔ ¬ asked.state.redis.Live key) := by
  obtain ⟨asked, reply, replied, rest, _, answered, ended, rfl⟩ := Ends.of_ask ends
  obtain ⟨rfl, rfl⟩ := Ends.of_done ended
  cases answered with
  | answer executed =>
    obtain ⟨rfl, rfl, missing⟩ := execute_get executed
    exact ⟨asked, rfl, rfl, missing.trans Store.not_live_iff.symm⟩

theorem ends_keys {pattern : String} {outcome : Option (ReadReply (.keys pattern))}
    (ends : Ends (besideMarci config serde) before (Client.keys pattern) trace outcome) :
    ∃ (asked : Concurrent) (order : Enumeration),
      trace = [⟨asked, .keys pattern, .ok (scanned order asked.state.redis pattern)⟩] ∧
      outcome = some (.ok (scanned order asked.state.redis pattern)) := by
  obtain ⟨asked, reply, replied, rest, _, answered, ended, rfl⟩ := Ends.of_ask ends
  obtain ⟨rfl, rfl⟩ := Ends.of_done ended
  cases answered with
  | answer executed =>
    rename_i order _ _
    cases executed
    exact ⟨asked, order, rfl, rfl⟩

/-- What follows an optional value has it as it was found. -/
theorem ends_getOptional {α β : Type} {convert : String → Option α} {key : String}
    {next : Option α → Program ReadReply β} {outcome : Option β}
    (ends : Ends (besideMarci config serde) before (getOptional convert key >>= next) trace outcome) :
    ∃ (asked middle : Concurrent) (reply : ReadReply (.get key)) (rest : List Reading),
      Ends (besideMarci config serde) middle (next ((asked.state.redis.text? key).bind convert))
        rest outcome ∧ trace = ⟨asked, .get key, reply⟩ :: rest := by
  rw [getOptional, LawfulMonad.bind_assoc] at ends
  rcases Ends.split ends with ⟨rfl, head⟩ | ⟨reply, middle, first, rest, head, tail, rfl⟩
  · obtain ⟨asked, _, absurdity, _⟩ := ends_get head
    cases absurdity
  · obtain ⟨asked, rfl, same, _⟩ := ends_get head
    obtain rfl := Option.some.inj same
    refine ⟨asked, middle, _, rest, ?_, rfl⟩
    cases found : asked.state.redis.text? key with
    | none =>
      rw [found] at tail
      exact tail
    | some content =>
      rw [found] at tail
      exact tail

/-- The details of a peer are always found out, and its date is the one thing
about them that may not be in the calendar. -/
theorem ends_getPeerInfo (formats : Formats F64)
    (ends : Ends (besideMarci config serde) before (getPeerInfo formats peerId) trace outcome) :
    ∃ details, outcome = some details ∧
      (details.timestamp.toNat ≤ formats.lastSecond ↔ ∀ event ∈ trace, Answerable formats event) := by
  obtain ⟨countryAsked, _, _, _, cityOn, rfl⟩ := ends_getOptional ends
  obtain ⟨cityAsked, _, _, _, posOn, rfl⟩ := ends_getOptional cityOn
  obtain ⟨posAsked, _, _, _, fullOn, rfl⟩ := ends_getOptional posOn
  obtain ⟨fullAsked, _, _, _, seenOn, rfl⟩ := ends_getOptional fullOn
  obtain ⟨seenAsked, _, _, _, finished, rfl⟩ := ends_getOptional seenOn
  obtain ⟨rfl, rfl⟩ := Ends.of_done finished
  refine ⟨_, rfl, ?_⟩
  have dated : Dated formats seenAsked.state.redis peerId ↔
      (((seenAsked.state.redis.text? (KeyFormat.peerSeen.key peerId)).bind
        formats.u64Value).getD 0).toNat ≤ formats.lastSecond := Iff.rfl
  simp [answerable_get, dated]

theorem makePeer_finishes (id : Int32) (version versionShort peerId : String) :
    FinishesWhen (besideMarci config serde) (Answerable formats)
      (makePeer formats id version versionShort peerId) := by
  intro before trace outcome ends
  rw [makePeer] at ends
  rcases Ends.split ends with ⟨rfl, head⟩ | ⟨details, middle, first, rest, head, tail, rfl⟩
  · obtain ⟨_, absurdity, _⟩ := ends_getPeerInfo formats head
    cases absurdity
  · obtain ⟨found, same, inCalendar⟩ := ends_getPeerInfo formats head
    obtain rfl := Option.some.inj same
    by_cases dated : details.timestamp.toNat ≤ formats.lastSecond
    · rw [dateTime, if_pos dated] at tail
      obtain ⟨rfl, rfl⟩ := Ends.of_done tail
      rw [List.append_nil, ← inCalendar]
      exact iff_of_true rfl dated
    · rw [dateTime, if_neg dated] at tail
      obtain ⟨rfl, rfl⟩ := Ends.of_stop tail
      rw [List.append_nil, ← inCalendar]
      exact iff_of_false Bool.false_ne_true dated

/-- A status record is read without a default: it has to be there. -/
theorem getString_succeeds {format : KeyFormat} (status : format ∈ [KeyFormat.onlinePeer, .online2Peer])
    (peerId : String) :
    SucceedsWhen (besideMarci config serde) (Answerable formats)
      (ExceptT.mk (Client.getString (format.key peerId)) : Query ReadReply String) := by
  intro before trace outcome ends
  rw [ExceptT.run_mk, Client.getString] at ends
  rcases Ends.split ends with ⟨rfl, head⟩ | ⟨reply, middle, first, rest, head, tail, rfl⟩
  · obtain ⟨asked, _, absurdity, _⟩ := ends_get head
    cases absurdity
  · obtain ⟨asked, rfl, same, missing⟩ := ends_get head
    obtain rfl := Option.some.inj same
    have plain : format ≠ .peerSeen := by
      rintro rfl
      simp at status
    cases found : asked.state.redis.text? (format.key peerId) with
    | none =>
      rw [found] at tail
      obtain ⟨rfl, rfl⟩ := Ends.of_done tail
      simp [answerable_get, status, plain, missing.mp found]
    | some content =>
      rw [found] at tail
      obtain ⟨rfl, rfl⟩ := Ends.of_done tail
      have standing : asked.state.redis.Live (format.key peerId) := by
        by_contra lapsed
        rw [missing.mpr lapsed] at found
        cases found
      simp [answerable_get, plain, standing]

theorem listedVersion_succeeds (statuses : Statuses) (peerId : String) :
    SucceedsWhen (besideMarci config serde) (Answerable formats)
      (listedVersion statuses peerId : Query ReadReply String) := by
  unfold listedVersion
  split
  · exact getString_succeeds (by decide) peerId
  · split
    · exact getString_succeeds (by decide) peerId
    · exact .pure ""

theorem keys_succeeds (pattern : String) :
    SucceedsWhen (besideMarci config serde) (Answerable formats)
      (ExceptT.mk (Client.keys pattern) : Query ReadReply (List String)) := by
  intro before trace outcome ends
  obtain ⟨asked, order, rfl, rfl⟩ := ends_keys ends
  simp [answerable_keys]

theorem scanStatuses_succeeds (formats : Formats F64) :
    SucceedsWhen (besideMarci config serde) (Answerable formats)
      (scanStatuses : Query ReadReply Statuses) :=
  .bind (keys_succeeds _) fun _ => .bind (keys_succeeds _) fun _ =>
    .bind (keys_succeeds _) fun _ => .pure _

/-- Each round of the loop needs the readings of its own peer only. -/
theorem listPeers_succeeds (statuses : Statuses) (index : Nat) (peerIds : List String) :
    SucceedsWhen (besideMarci config serde) (Answerable formats)
      (listPeers formats statuses index peerIds : Query ReadReply (List (String × Peer F64))) := by
  induction peerIds generalizing index with
  | nil => exact .pure []
  | cons peerId rest inductionHypothesis =>
    rw [listPeers]
    split
    · exact inductionHypothesis (index + 1)
    · exact .bind (listedVersion_succeeds statuses peerId) fun version =>
        .bind (.lift (makePeer_finishes _ _ _ _)) fun peer =>
          .bind (inductionHypothesis (index + 1)) fun peers => .pure _

/-- The loop lists the peers of the index that some scan has left. -/
theorem listPeers_ids_ended {index : Nat} {peerIds : List String} {peers : List (String × Peer F64)}
    (ends : Ends (besideMarci config serde) before
      (listPeers formats statuses index peerIds : Query ReadReply _).run trace (some (.ok peers))) :
    peers.map Prod.fst = peerIds.filter statuses.lists := by
  induction peerIds generalizing before trace index peers with
  | nil =>
    obtain ⟨_, same⟩ := Ends.of_done ends
    cases same
    rfl
  | cons peerId rest inductionHypothesis =>
    rw [listPeers] at ends
    have passed : (!statuses.onlinePeers.contains peerId && !statuses.online2Peers.contains peerId &&
        !statuses.unknownPeers.contains peerId) = !statuses.lists peerId := by
      simp [Statuses.lists, Bool.not_or]
    rw [passed] at ends
    cases listed : statuses.lists peerId with
    | false =>
      rw [listed, Bool.not_false, if_pos rfl] at ends
      rw [List.filter_cons_of_neg (by simp [listed])]
      exact inductionHypothesis ends
    | true =>
      rw [listed, Bool.not_true, if_neg Bool.false_ne_true] at ends
      obtain ⟨version, _, _, _, _, afterVersion, _⟩ := Ends.split_ok ends
      obtain ⟨peer, _, _, _, _, afterPeer, _⟩ := Ends.split_ok afterVersion
      obtain ⟨others, _, _, _, further, finished, _⟩ := Ends.split_ok afterPeer
      obtain ⟨_, same⟩ := Ends.of_done finished
      cases same
      rw [List.filter_cons_of_pos listed, ← inductionHypothesis further]
      rfl

/-- A scan at which the id was left of some live key of a status format. -/
def LeftBy (peerId : String) (event : Reading) (format : KeyFormat) : Prop :=
  event.question = .keys (format.key "*") ∧ ∃ key, event.before.state.redis.Live key ∧
    globMatches (format.key "*") key = true ∧ ((rsplitOnceDot key).map Prod.snd).getD "" = peerId

/-- Some scan of the status records met the peer. -/
def Met (peerId : String) (trace : List Reading) : Prop :=
  ∃ event ∈ trace, ∃ format ∈ statusFormats, LeftBy peerId event format

theorem met_append {first rest : List Reading} :
    Met peerId (first ++ rest) ↔ Met peerId first ∨ Met peerId rest := by
  simp only [Met, List.mem_append, or_and_right, exists_or]

/-- Nothing but the scans of the status records can meet a peer. -/
theorem not_met (others : ∀ event ∈ trace, ∀ format ∈ statusFormats,
    event.question ≠ .keys (format.key "*")) : ¬ Met peerId trace := by
  intro met
  obtain ⟨event, member, format, status, asked, _⟩ := met
  exact others event member format status asked

theorem met_scan {asked : Concurrent} (order : Enumeration) {format : KeyFormat}
    {reply : ReadReply (.keys (format.key "*"))} (status : format ∈ statusFormats) :
    Met peerId (⟨asked, .keys (format.key "*"), reply⟩ :: trace) ↔
      peerId ∈ keysToPeerIds (scanned order asked.state.redis (format.key "*")) ∨ Met peerId trace := by
  have left : peerId ∈ keysToPeerIds (scanned order asked.state.redis (format.key "*")) ↔
      ∃ other ∈ statusFormats, LeftBy peerId ⟨asked, .keys (format.key "*"), reply⟩ other := by
    simp only [keysToPeerIds, List.mem_map, mem_scanned]
    constructor
    · intro given
      obtain ⟨key, ⟨live, selected⟩, same⟩ := given
      exact ⟨format, status, rfl, key, live, selected, same⟩
    · intro given
      obtain ⟨other, _, question, key, live, selected, same⟩ := given
      obtain ⟨rfl, _⟩ := KeyFormat.key_eq_key.mp (Command.keys.inj question)
      exact ⟨key, ⟨live, selected⟩, same⟩
  rw [left]
  simp only [Met, List.mem_cons, or_and_right, exists_or, exists_eq_left]

/-- What follows a scan has the keys as they were found. -/
theorem ends_keys_then {α : Type} {pattern : String} {next : List String → Query ReadReply α}
    {outcome : Option (Except RedisError α)}
    (ends : Ends (besideMarci config serde) before (ExceptT.mk (Client.keys pattern) >>= next).run
      trace outcome) :
    ∃ (asked middle : Concurrent) (order : Enumeration) (rest : List Reading),
      Ends (besideMarci config serde) middle (next (scanned order asked.state.redis pattern)).run rest
        outcome ∧
      trace = ⟨asked, .keys pattern, .ok (scanned order asked.state.redis pattern)⟩ :: rest := by
  rcases Ends.split_run ends with ⟨failed, head, fails, _⟩ | ⟨keys, middle, _, rest, head, tail, rfl⟩
  · obtain ⟨_, _, _, rfl⟩ := ends_keys head
    exact absurd ⟨_, rfl⟩ fails
  · obtain ⟨asked, order, rfl, same⟩ := ends_keys head
    cases same
    exact ⟨asked, middle, order, rest, tail, rfl⟩

/-- The three scans are made, and what they leave is what they met. -/
theorem ends_scanStatuses {outcome : Option (Except RedisError Statuses)}
    (ends : Ends (besideMarci config serde) before (scanStatuses : Query ReadReply _).run trace outcome) :
    ∃ statuses, outcome = some (.ok statuses) ∧
      (∀ peerId, statuses.lists peerId = true ↔ Met peerId trace) ∧
      ∀ format ∈ statusFormats, ∃ event ∈ trace, event.question = .keys (format.key "*") := by
  have online : "peer.online.*" = KeyFormat.onlinePeer.key "*" := by decide
  have online2 : "peer.online2.*" = KeyFormat.online2Peer.key "*" := by decide
  have unknown : "peer.unknown.*" = KeyFormat.unknownPeer.key "*" := by decide
  rw [scanStatuses, online, online2, unknown] at ends
  obtain ⟨onlineAsked, _, order, _, afterOnline, rfl⟩ := ends_keys_then ends
  obtain ⟨online2Asked, _, order2, _, afterOnline2, rfl⟩ := ends_keys_then afterOnline
  obtain ⟨unknownAsked, _, order3, _, finished, rfl⟩ := ends_keys_then afterOnline2
  obtain ⟨rfl, rfl⟩ := Ends.of_done finished
  refine ⟨_, rfl, ?_, ?_⟩
  · intro peerId
    rw [met_scan order (by decide), met_scan order2 (by decide), met_scan order3 (by decide)]
    simp [Statuses.lists, Met, or_assoc]
  · simp [statusFormats]

/-- A command that reads one key. -/
def ReadsKey (command : Command) : Prop := ∃ key, command = .get key

theorem getOptional_within {α : Type} (convert : String → Option α) (key : String) :
    (getOptional convert key : Program ReadReply _).Within ReadsKey := by
  refine ⟨⟨key, rfl⟩, fun reply => ?_⟩
  rcases reply with _ | _ | _ <;> trivial

theorem makePeer_within (id : Int32) (version versionShort peerId : String) :
    (makePeer formats id version versionShort peerId : Program ReadReply _).Within ReadsKey := by
  have details : (getPeerInfo formats peerId : Program ReadReply _).Within ReadsKey :=
    .andThen (getOptional_within _ _) fun _ => .andThen (getOptional_within _ _) fun _ =>
      .andThen (getOptional_within _ _) fun _ => .andThen (getOptional_within _ _) fun _ =>
        .andThen (getOptional_within _ _) fun _ => trivial
  refine .andThen details fun found => .andThen ?_ fun _ => trivial
  unfold dateTime
  split <;> trivial

theorem listedVersion_within (statuses : Statuses) (peerId : String) :
    (listedVersion statuses peerId : Query ReadReply _).run.Within ReadsKey := by
  have read (key : String) :
      (ExceptT.mk (Client.getString key) : Query ReadReply _).run.Within ReadsKey := by
    refine ⟨⟨key, rfl⟩, fun reply => ?_⟩
    rcases reply with _ | _ | _ <;> trivial
  unfold listedVersion
  split
  · exact read _
  · split
    · exact read _
    · trivial

theorem listPeers_within (statuses : Statuses) (index : Nat) (peerIds : List String) :
    (listPeers formats statuses index peerIds : Query ReadReply _).run.Within ReadsKey := by
  induction peerIds generalizing index with
  | nil => trivial
  | cons peerId rest inductionHypothesis =>
    rw [listPeers]
    split
    · exact inductionHypothesis (index + 1)
    · exact .run_bind (listedVersion_within statuses peerId) fun version =>
        .run_bind (.run_lift (makePeer_within _ _ _ _)) fun peer =>
          .run_bind (inductionHypothesis (index + 1)) fun peers => trivial

/-- The listing scans the index, then the status records, and goes through what
it found. -/
theorem ends_getLabelledPeers {network : CKBNetworkType} {pattern : String}
    (indexed : indexPattern network = some pattern)
    {outcome : Option (Except RedisError (List (String × Peer F64)))}
    (ends : Ends (besideMarci config serde) before
      (getLabelledPeers formats network : Query ReadReply _).run trace outcome) :
    ∃ (asked afterIndex middle : Concurrent) (order : Enumeration) (statuses : Statuses)
        (scans rest : List Reading),
      Ends (besideMarci config serde) afterIndex (scanStatuses : Query ReadReply _).run scans
        (some (.ok statuses)) ∧
      Ends (besideMarci config serde) middle (listPeers formats statuses 0
        (scannedIds order asked.state.redis pattern) : Query ReadReply _).run rest outcome ∧
      trace = ⟨asked, .keys pattern, .ok (scanned order asked.state.redis pattern)⟩ :: (scans ++ rest) := by
  rw [getLabelledPeers, indexed] at ends
  obtain ⟨asked, afterIndex, order, later, onward, rfl⟩ := ends_keys_then ends
  rw [reachableKeysToPeerIds_total indexed] at onward
  rcases Ends.split_run onward with ⟨failed, head, fails, _⟩ | ⟨statuses, middle, scans, rest, head, tail, rfl⟩
  · obtain ⟨statuses, rfl, _⟩ := ends_scanStatuses head
    exact absurd ⟨_, rfl⟩ fails
  · exact ⟨asked, afterIndex, middle, order, statuses, scans, rest, head, tail, rfl⟩

/-- The listing succeeds exactly if all its readings are answerable. -/
theorem getLabelledPeers_succeeds {network : CKBNetworkType} {pattern : String}
    (indexed : indexPattern network = some pattern) :
    SucceedsWhen (besideMarci config serde) (Answerable formats)
      (getLabelledPeers formats network : Query ReadReply (List (String × Peer F64))) := by
  intro before trace outcome ends
  obtain ⟨asked, _, _, order, statuses, scans, rest, scanning, listing, rfl⟩ :=
    ends_getLabelledPeers indexed ends
  have indexAnswerable : Answerable formats
      ⟨asked, .keys pattern, .ok (scanned order asked.state.redis pattern)⟩ := answerable_keys rfl
  have scansAnswerable := (scanStatuses_succeeds formats _ _ _ scanning).mp ⟨statuses, rfl⟩
  rw [listPeers_succeeds _ _ _ _ _ _ listing]
  simp only [List.mem_cons, List.mem_append, forall_eq_or_imp, indexAnswerable, true_and]
  constructor
  · intro restAnswerable event member
    rcases member with early | late
    · exact scansAnswerable event early
    · exact restAnswerable event late
  · intro allAnswerable event member
    exact allAnswerable event (.inr member)

/-- In every state the peer is in the index of the network and has some live
status record. -/
def OnMap (network : CKBNetworkType) (peerId : String) (states : List Concurrent) : Prop :=
  ∀ moment ∈ states, moment.state.redis.Live ((KeyFormat.peerNetworkQuick network).key peerId) ∧
    Shown moment.state.redis peerId

instance (network : CKBNetworkType) (peerId : String) (states : List Concurrent) :
    Decidable (OnMap network peerId states) :=
  inferInstanceAs (Decidable (∀ moment ∈ states, _))

/-- Only the scans of the status records meet a peer: the index is another
pattern, and all that follows is read key by key. -/
theorem met_iff_scans {network : CKBNetworkType} {pattern : String}
    (indexed : indexPattern network = some pattern) {first : Reading} {scans rest : List Reading}
    (index : first.question = .keys pattern) (reads : ∀ event ∈ rest, ReadsKey event.question) :
    Met peerId (first :: (scans ++ rest)) ↔ Met peerId scans := by
  have unmetIndex : ¬ Met peerId [first] := by
    apply not_met
    intro event member format status same
    obtain rfl := List.mem_singleton.mp member
    have others : ∀ status ∈ statusFormats, indexPattern network ≠ some (status.key "*") := by
      cases network <;> decide
    rw [index] at same
    exact others format status (indexed.trans (congrArg some (Command.keys.inj same)))
  have unmetRest : ¬ Met peerId rest := by
    apply not_met
    intro event member format _ same
    obtain ⟨key, asked⟩ := reads event member
    rw [asked] at same
    cases same
  have parts : first :: (scans ++ rest) = [first] ++ (scans ++ rest) := rfl
  rw [parts, met_append, met_append]
  simp only [unmetIndex, unmetRest, false_or, or_false]

/-- What a listing shows that succeeded: the ids that the scan of the index
left and some scan of the status records met. -/
theorem listed_iff {network : CKBNetworkType} (supported : network ≠ .dev)
    {peers : List (String × Peer F64)}
    (ended : Ended (besideMarci config serde) before
      (getLabelledPeers formats network : Query ReadReply _).run states trace (some (.ok peers))) :
    (peerId ∈ peers.map Prod.fst → '.' ∉ peerId.toList ∧ Met peerId trace) ∧
      (OnMap network peerId states → '.' ∉ peerId.toList → Met peerId trace →
        peerId ∈ peers.map Prod.fst) := by
  obtain ⟨pattern, indexed⟩ := indexPattern_of_ne_dev supported
  obtain ⟨asked, _, _, order, statuses, scans, rest, scanning, listing, rfl⟩ :=
    ends_getLabelledPeers indexed ⟨_, ended⟩
  obtain ⟨_, same, met, _⟩ := ends_scanStatuses scanning
  cases same
  have reads := Ends.permitted (listPeers_within _ _ _) listing
  rw [met_iff_scans indexed rfl reads, ← met peerId, listPeers_ids_ended listing, List.mem_filter]
  constructor
  · intro member
    obtain ⟨inIndex, shown⟩ := member
    obtain ⟨key, present, piece⟩ := List.mem_map.mp inIndex
    obtain ⟨found, cut⟩ := Option.isSome_iff_exists.mp
      (indexed_pieces indexed (mem_scanned.mp present).2)
    rw [cut, Option.getD_some] at piece
    subst piece
    exact ⟨rsplitDot_dotless (List.mem_of_getElem? cut), shown⟩
  · intro onMap dotless shown
    have here : asked ∈ states := ended.visited _ List.mem_cons_self
    refine ⟨List.mem_map.mpr ⟨(KeyFormat.peerNetworkQuick network).key peerId, ?_, ?_⟩, shown⟩
    · exact mem_scanned.mpr ⟨(onMap asked here).1, (index_scan indexed _).mpr ⟨peerId, rfl⟩⟩
    · rw [indexed_id dotless, Option.getD_some]

/-- However Marci's commands and the deadlines of keys fall between the commands
of a listing: it returns every peer that was on the map throughout exactly if no
status record was gone when its turn came, no date was past the calendar, and
each of those peers has an id without dots and was met by a scan on its way from
one status record to the next. -/
theorem listing_complete_iff (formats : Formats F64) (config : Config) (serde : Serde)
    {network : CKBNetworkType} (supported : network ≠ .dev)
    {outcome : Option (Except RedisError (List (String × Peer F64)))}
    (ended : Ended (besideMarci config serde) before
      (getLabelledPeers formats network : Query ReadReply _).run states trace outcome) :
    (∃ peers, outcome = some (.ok peers) ∧
        ∀ peerId, OnMap network peerId states → peerId ∈ peers.map Prod.fst) ↔
      (∀ event ∈ trace, Answerable formats event) ∧
        ∀ peerId, OnMap network peerId states → '.' ∉ peerId.toList ∧ Met peerId trace := by
  obtain ⟨pattern, indexed⟩ := indexPattern_of_ne_dev supported
  rw [← getLabelledPeers_succeeds indexed _ _ _ ⟨_, ended⟩]
  constructor
  · intro given
    obtain ⟨peers, rfl, complete⟩ := given
    refine ⟨⟨peers, rfl⟩, fun peerId onMap => ?_⟩
    exact (listed_iff supported ended).1 (complete peerId onMap)
  · intro given
    obtain ⟨⟨peers, rfl⟩, plain⟩ := given
    refine ⟨peers, rfl, fun peerId onMap => ?_⟩
    exact (listed_iff supported ended).2 onMap (plain peerId onMap).1 (plain peerId onMap).2

/-- A peer that keeps one of its status records throughout is met. -/
theorem met_of_standing {network : CKBNetworkType} (supported : network ≠ .dev)
    {outcome : Option (Except RedisError (List (String × Peer F64)))}
    (ended : Ended (besideMarci config serde) before
      (getLabelledPeers formats network : Query ReadReply _).run states trace outcome)
    {format : KeyFormat} (status : format ∈ statusFormats) (dotless : '.' ∉ peerId.toList)
    (standing : ∀ moment ∈ states, moment.state.redis.Live (format.key peerId)) :
    Met peerId trace := by
  obtain ⟨pattern, indexed⟩ := indexPattern_of_ne_dev supported
  obtain ⟨asked, _, _, order, statuses, scans, rest, scanning, _, rfl⟩ :=
    ends_getLabelledPeers indexed ⟨_, ended⟩
  obtain ⟨_, _, _, made⟩ := ends_scanStatuses scanning
  obtain ⟨event, member, question⟩ := made format status
  have present : event ∈ ⟨asked, .keys pattern, .ok (scanned order asked.state.redis pattern)⟩ ::
      (scans ++ rest) := List.mem_cons_of_mem _ (List.mem_append_left _ member)
  obtain ⟨stem, spelled, plain⟩ : ∃ stem, (∀ other, format.key other = stem ++ "." ++ other) ∧
      PlainText (stem ++ ".") := by
    rcases List.mem_cons.mp status with rfl | others
    · exact ⟨"peer.online", by simp [KeyFormat.key, KeyFormat.affix, Affix.key], by decide⟩
    · rcases List.mem_cons.mp others with rfl | last
      · exact ⟨"peer.online2", by simp [KeyFormat.key, KeyFormat.affix, Affix.key], by decide⟩
      · obtain rfl := List.mem_singleton.mp last
        exact ⟨"peer.unknown", by simp [KeyFormat.key, KeyFormat.affix, Affix.key], by decide⟩
  refine ⟨event, present, format, status, question, format.key peerId,
    standing _ (ended.visited event present), ?_, ?_⟩
  · have starred : format.key "*" = stem ++ "." ++ "*" ++ "" := by simp [spelled]
    rw [starred, globMatches_star _ _ plain (by decide)]
    exact ⟨peerId, by simp [spelled]⟩
  · rw [spelled, rsplitOnceDot_append stem dotless, Option.getD_some]

def Concurrent.wait (duration : Nat) (moment : Concurrent) : Concurrent :=
  { moment with state := moment.state.wait duration }

def serve (order : Enumeration) : Responder Concurrent ReadReply
  | moment, command =>
    match execute order moment.state.redis command with
    | .ok (value, store) =>
      some (.ok value, { moment with state := { moment.state with redis := store } })
    | .error _ => none

theorem serve_faithful (order : Enumeration) : Faithful (besideMarci config serde) (serve order) := by
  intro moment command reply replied served
  simp only [serve] at served
  split at served
  · rename_i executed
    cases served
    exact .answer executed
  · cases served

/-- Two peers on the map, the second with less time left. -/
def neighboursScript : List (Nat × Message) :=
  [(0, .reachable ⟨⟨"Qm", [], .mirana⟩, ⟨"Qr", [], .mirana⟩⟩),
    (0, .online ⟨⟨"Qm", [], .mirana⟩, "0.2", true, false⟩),
    (60000, .reachable ⟨⟨"Qa", [], .mirana⟩, ⟨"Qr", [], .mirana⟩⟩),
    (0, .online ⟨⟨"Qa", [], .mirana⟩, "0.1", true, false⟩),
    (39000, .tick)]

/-- The script, and then a listing with pauses before its commands. -/
theorem play_neighbours (pauses : List Nat)
    (check : List Concurrent → Option (Except RedisError (List (String × Peer Unit))) → Bool)
    (played : (play sampleConfig .unary sampleSurroundings neighboursScript (.initial 0)).any
      fun result => ((getLabelledPeers sampleFormats .mirana : Query ReadReply _).run.rehearse
        (serve .sorted) Concurrent.wait pauses ⟨result.2, .done ()⟩).any
          fun listing => check listing.1 listing.2.2) :
    ∃ turns marci states trace outcome,
      MarciRun sampleConfig .unary (.initial 0) turns marci ∧
      Ended (besideMarci sampleConfig .unary) ⟨marci, .done ()⟩
        (getLabelledPeers sampleFormats .mirana : Query ReadReply _).run states trace outcome ∧
      check states outcome = true := by
  obtain ⟨⟨turns, marci⟩, same, listed⟩ := (Option.any_eq_true _ _).mp played
  obtain ⟨⟨states, trace, outcome⟩, rehearsed, holds⟩ := (Option.any_eq_true _ _).mp listed
  have ended : Ended (besideMarci sampleConfig .unary) ⟨marci, .done ()⟩
      (getLabelledPeers sampleFormats .mirana : Query ReadReply _).run states trace outcome :=
    .of_rehearse (serve_faithful .sorted)
      (fun pause moment => .lapse (.redis (.elapse moment.state.redis pause))) rehearsed
  exact ⟨turns, marci, states, trace, outcome, play_run same, ended, holds⟩

/-- One record lapses between its scan and its reading, and the listing of the
other peer, which was on the map throughout, is lost with it. -/
theorem lapse_fails_listing : ∃ turns marci states trace,
    MarciRun sampleConfig .unary (.initial 0) turns marci ∧
      Ended (besideMarci sampleConfig .unary) ⟨marci, .done ()⟩
        (getLabelledPeers sampleFormats .mirana : Query ReadReply _).run states trace
        (some (.error .typeConversion)) ∧
      OnMap .mirana "Qa" states := by
  obtain ⟨turns, marci, states, trace, outcome, run, ended, checked⟩ :=
    play_neighbours [0, 0, 0, 0, 2000]
      (fun states outcome => decide (outcome = some (.error .typeConversion) ∧ OnMap .mirana "Qa" states))
      (by decide)
  obtain ⟨rfl, onMap⟩ := of_decide_eq_true checked
  exact ⟨turns, marci, states, trace, run, ended, onMap⟩

/-- No state has another peer in the index than these two. -/
def OnlyNeighbours (states : List Concurrent) : Prop :=
  ∀ moment ∈ states, ∀ key ∈ moment.state.redis.liveKeys,
    globMatches "network.peer.*.mirana" key = true →
      key ∈ ["Qa", "Qm"].map (KeyFormat.peerNetworkQuick .mirana).key

instance (states : List Concurrent) : Decidable (OnlyNeighbours states) :=
  inferInstanceAs (Decidable (∀ moment ∈ states, _))

/-- The same record lapses after its reading, and both peers are listed. -/
theorem listing_complete_sample : ∃ turns marci states trace outcome,
    MarciRun sampleConfig .unary (.initial 0) turns marci ∧
      Ended (besideMarci sampleConfig .unary) ⟨marci, .done ()⟩
        (getLabelledPeers sampleFormats .mirana : Query ReadReply _).run states trace outcome ∧
      outcome.map (Except.map (List.map Prod.fst)) = some (.ok ["Qa", "Qm"]) ∧
      OnMap .mirana "Qa" states ∧ ¬ OnMap .mirana "Qm" states ∧
      ∀ event ∈ trace, Answerable sampleFormats event := by
  obtain ⟨turns, marci, states, trace, outcome, run, ended, checked⟩ :=
    play_neighbours [0, 0, 0, 0, 0, 0, 0, 0, 0, 0, 0, 2000]
      (fun states outcome => decide (
        outcome.map (Except.map (List.map Prod.fst)) = some (.ok ["Qa", "Qm"]) ∧
        OnMap .mirana "Qa" states ∧ ¬ OnMap .mirana "Qm" states ∧ OnlyNeighbours states ∧ states ≠ []))
      (by decide)
  obtain ⟨listed, first, second, only, visited⟩ := of_decide_eq_true checked
  refine ⟨turns, marci, states, trace, outcome, run, ended, listed, first, second, ?_⟩
  have supported : CKBNetworkType.mirana ≠ .dev := by decide
  refine ((listing_complete_iff sampleFormats sampleConfig .unary supported ended).mp ?_).1
  rcases outcome with _ | _ | peers
  · cases listed
  · cases listed
  · have ids : peers.map Prod.fst = ["Qa", "Qm"] := Except.ok.inj (Option.some.inj listed)
    refine ⟨peers, rfl, fun peerId onMap => ?_⟩
    obtain ⟨moment, present⟩ := List.exists_mem_of_ne_nil states visited
    have selected : globMatches "network.peer.*.mirana"
        ((KeyFormat.peerNetworkQuick .mirana).key peerId) = true :=
      (index_scan rfl _).mpr ⟨peerId, rfl⟩
    obtain ⟨known, listedId, same⟩ := List.mem_map.mp
      (only moment present _ (Store.mem_liveKeys.mpr (onMap moment present).1) selected)
    obtain ⟨_, rfl⟩ := KeyFormat.key_eq_key.mp same
    rwa [ids]

end CkbDiscovery.Exposed
