import CkbDiscovery.Marci.Instant

/-! Messages about different peers do not interfere: neither touches a record
of the other, and they may be processed in any order. -/

namespace CkbDiscovery.Marci

open Effect Redis

variable {surroundings : Surroundings} {config : Config} {serde : Serde} {message : Message}
  {peerId : String}

/-- A turn commutes with what commutes with all it asks about its peer and with
the stamp of the service. -/
theorem turnOf_commutes {second : StateT Store Option β} (aboutPeer : message ≠ .tick)
    (questions : ∀ question, question.About true message.formats message.subject →
      Commutes ((settle surroundings).step question) second)
    (update : Commutes (setLastUpdate.run (settle surroundings)) second) :
    Commutes (turnOf surroundings config serde message) second := by
  cases message with
  | online peer =>
    have touches : Touches true (Message.online peer).formats peer.info.peerId
        (handle config serde (.online peer)) :=
      ((touches_markOnline peer).mono (by simp [Message.formats])).andThen fun _ =>
      ((touches_locateOnline peer).mono (by simp [Message.formats, locationFormats])).andThen fun _ =>
      (touches_settleOnline peer).mono (by simp [Message.formats])
    exact run_commutes questions touches
  | unknown peer =>
    have touches : Touches true (Message.unknown peer).formats peer.peerId
        (handle config serde (.unknown peer)) :=
      ((touches_markUnknown peer.peerId).mono (by simp [Message.formats])).andThen fun _ =>
      (touches_setLastSeen peer.peerId).mono (by simp [Message.formats])
    exact run_commutes questions touches
  | reachable peer =>
    have records : Touches true (Message.reachable peer).formats peer.peer.peerId (recordReachable serde peer) :=
      (touches_recordReachable peer).mono (by simp [Message.formats])
    have stamps : Touches true (Message.reachable peer).formats peer.peer.peerId (setLastSeen peer.peer.peerId) :=
      (touches_setLastSeen peer.peer.peerId).mono (by simp [Message.formats])
    have locates : Touches true (Message.reachable peer).formats peer.peer.peerId (locateReachable peer) :=
      (touches_locateReachable peer).mono (by simp [Message.formats, locationFormats])
    unfold turnOf handle handleReachable
    rw [run_bind]
    refine (run_commutes questions records).bind fun _ => ?_
    rw [run_bind]
    refine (run_commutes questions stamps).bind fun _ => ?_
    rw [run_bind]
    exact (run_commutes questions locates).bind fun _ => update
  | tick => exact absurd rfl aboutPeer

theorem turns_commute {first second : Message} (firstAbout : first ≠ .tick) (secondAbout : second ≠ .tick)
    (different : first.subject ≠ second.subject) :
    Commutes (turnOf surroundings config serde first) (turnOf surroundings config serde second) := by
  have updates : Commutes (setLastUpdate.run (settle surroundings)) (turnOf surroundings config serde second) := by
    apply Commutes.symm
    apply turnOf_commutes secondAbout
    · intro question about
      exact (setLastUpdate_commutes about).symm
    · exact .self _
  apply turnOf_commutes firstAbout _ updates
  intro question about
  apply Commutes.symm
  apply turnOf_commutes secondAbout _ (setLastUpdate_commutes about)
  intro other otherAbout
  have here : Touches true first.formats first.subject (ask question) := ⟨about, fun _ => trivial⟩
  have there : Touches true second.formats second.subject (ask other) := ⟨otherAbout, fun _ => trivial⟩
  have commutes : Commutes ((ask other).run (settle surroundings))
      ((ask question).run (settle surroundings)) := there.commutes here (.inl (Ne.symm different))
  rwa [ask, ask, run_perform, run_perform] at commutes

theorem process_bind {first second : Message} (firstAbout : first ≠ .tick) (secondAbout : second ≠ .tick)
    {state : State} (agrees : surroundings.Agrees state.ipinfoCache) :
    ((process surroundings config serde first state).bind
        (process surroundings config serde second)).map State.redis =
      ((do turnOf surroundings config serde first; turnOf surroundings config serde second)
        state.redis).map Prod.snd := by
  have head : (process surroundings config serde first state).map State.redis =
      (turnOf surroundings config serde first state.redis).map Prod.snd :=
    process_redis firstAbout agrees
  change _ = ((turnOf surroundings config serde first state.redis).bind fun result =>
    turnOf surroundings config serde second result.2).map Prod.snd
  cases processed : process surroundings config serde first state with
  | none =>
    rw [processed] at head
    rw [Option.map_eq_none_iff.mp head.symm]
    rfl
  | some middle =>
    rw [processed] at head
    obtain ⟨result, turned, same⟩ := Option.map_eq_some_iff.mp head.symm
    rw [turned, Option.bind_some, Option.bind_some, same]
    exact process_redis secondAbout (process_agrees firstAbout agrees processed)

/-- No command of a message writes what is not a record of its formats or not
of its peer. -/
theorem handle_spares (format : KeyFormat) (outside : format ∉ message.formats ∨ peerId ≠ message.subject) :
    (handle config serde message).Within fun question =>
      question.writes ≠ some (format.key peerId) :=
  (onlyWrites_handle message).implies format peerId outside fun _ unwritten => unwritten

theorem process_keeps {state after : State} (format : KeyFormat)
    (outside : format ∉ message.formats ∨ peerId ≠ message.subject)
    (processed : process surroundings config serde message state = some after) :
    after.redis.now = state.redis.now ∧
      after.redis.find? (format.key peerId) = state.redis.find? (format.key peerId) := by
  obtain ⟨⟨value, last⟩, ran, rfl⟩ := Option.map_eq_some_iff.mp processed
  refine run_relates (fun earlier later : State => later.redis.now = earlier.redis.now ∧
    later.redis.find? (format.key peerId) = earlier.redis.find? (format.key peerId))
    (fun _ => ⟨rfl, rfl⟩) (fun first second => ⟨second.1.trans first.1, second.2.trans first.2⟩) ?_
    (handle_spares format outside) ran
  intro earlier question reply later spared answered
  cases question with
  | redis command =>
    simp only [respond] at answered
    cases executed : execute surroundings.order earlier.redis command with
    | error error =>
      rw [executed] at answered
      cases answered
    | ok result =>
      rw [executed] at answered
      cases answered
      exact ⟨(execute_exact executed).1, (execute_exact executed).2 _ spared⟩
  | _ => cases answered; exact ⟨rfl, rfl⟩

/-- A message about one peer issues no write to any record of another peer,
which keeps its value and its expiry, and two messages about distinct peers
lead to the same store in either order at the same instant. -/
theorem peers_apart (surroundings : Surroundings) (config : Config) (serde : Serde) :
    (∀ {message peerId}, message ≠ .tick → peerId ≠ message.subject → ∀ format : KeyFormat,
      (∀ {before trace after}, Reaches world before (handle config serde message) trace after →
        ∀ event ∈ trace, event.question.writes ≠ some (format.key peerId)) ∧
      ∀ {state after}, process surroundings config serde message state = some after →
        after.redis.find? (format.key peerId) = state.redis.find? (format.key peerId)) ∧
    ∀ {first second}, first ≠ .tick → second ≠ .tick → first.subject ≠ second.subject →
      ∀ {state}, surroundings.Agrees state.ipinfoCache →
        ((process surroundings config serde first state).bind
            (process surroundings config serde second)).map State.redis =
          ((process surroundings config serde second state).bind
            (process surroundings config serde first)).map State.redis := by
  constructor
  · intro message peerId _ aboutOther format
    exact ⟨fun reaches => Reaches.permitted (handle_spares format (.inr aboutOther)) reaches,
      fun processed => (process_keeps format (.inr aboutOther) processed).2⟩
  · intro first second firstAbout secondAbout different state agrees
    rw [process_bind firstAbout secondAbout agrees, process_bind secondAbout firstAbout agrees]
    have commutes : Commutes (turnOf surroundings config serde first)
        (turnOf surroundings config serde second) := turns_commute firstAbout secondAbout different
    have exchanged := commutes.exchange fun _ _ => pure ()
    rw [bind_pure_unit, bind_pure_unit] at exchanged
    rw [exchanged]

/-- One peer comes online and another is reported; nothing is known of any address. -/
def onlineMessage : Message := .online ⟨⟨"Qm", [sampleEndpoint], .mirana⟩, "0.1", true, false⟩

def reachableMessage : Message :=
  .reachable ⟨⟨"Qn", [sampleEndpoint], .mirana⟩, ⟨"Qr", [], .mirana⟩⟩

theorem peers_apart_sample :
    (((process sampleSurroundings sampleConfig sampleSerde onlineMessage (.initial 0)).bind
        (process sampleSurroundings sampleConfig sampleSerde reachableMessage)).map State.redis).isSome ∧
    ((process sampleSurroundings sampleConfig sampleSerde onlineMessage (.initial 0)).bind
        (process sampleSurroundings sampleConfig sampleSerde reachableMessage)).map State.redis =
      ((process sampleSurroundings sampleConfig sampleSerde reachableMessage (.initial 0)).bind
        (process sampleSurroundings sampleConfig sampleSerde onlineMessage)).map State.redis := by
  have first : onlineMessage ≠ .tick := by
    intro same
    cases same
  have second : reachableMessage ≠ .tick := by
    intro same
    cases same
  have agrees : sampleSurroundings.Agrees (State.initial 0).ipinfoCache := by
    intro ip details found
    cases found
  exact ⟨by decide +kernel, (peers_apart sampleSurroundings sampleConfig sampleSerde).2 first second
    (by decide) agrees⟩

end CkbDiscovery.Marci
