import CkbDiscovery.Marci.Status

/-! What holds of the records of every peer after every run: whose they are,
and how the online records look. -/

namespace CkbDiscovery.Marci

open Effect Redis

variable {config : Config} {serde : Serde} {before after : State} {trace : HandlerTrace}
  {peerId : String} {turns : List MarciTurn}

/-- A live record is in a format that some message about its peer may touch. -/
theorem run_written (run : MarciRun config serde (.initial now) turns after) :
    ∀ format : KeyFormat, ∀ peerId, after.redis.Live (format.key peerId) →
      ∃ turn ∈ turns, turn.message.subject = peerId ∧ format ∈ turn.message.formats := by
  apply run.keeps (fun turns state => ∀ format : KeyFormat, ∀ peerId,
    state.redis.Live (format.key peerId) →
      ∃ turn ∈ turns, turn.message.subject = peerId ∧ format ∈ turn.message.formats)
  · intro format peerId live
    simp [Store.Live, State.initial] at live
  · intro turns before message trace after _ recorded completes format peerId live
    by_cases inside : format.key peerId ∈ recordKeys message.formats message.subject
    · obtain ⟨member, same⟩ := mem_recordKeys.mp inside
      exact ⟨_, List.mem_cons_self, same.symm, member⟩
    · have frame := (onlyWrites_handle message).frame completes
      obtain ⟨turn, member, found⟩ := recorded format peerId (frame.live_before inside live)
      exact ⟨turn, List.mem_cons_of_mem _ member, found⟩

/-- A live record belongs to a peer that some message was about. -/
theorem run_recorded (run : MarciRun config serde (.initial now) turns after) :
    ∀ format : KeyFormat, ∀ peerId, after.redis.Live (format.key peerId) →
      ∃ turn ∈ turns, turn.message.subject = peerId := by
  intro format peerId live
  obtain ⟨turn, member, same, _⟩ := run_written run format peerId live
  exact ⟨turn, member, same⟩

/-- A version under a deadline that a fresh record could have. -/
def VersionRecord (config : Config) (store : Store) (key : String) : Prop :=
  ∀ entry, store.find? key = some entry → ∃ version deadline,
    entry = ⟨.text version, some deadline⟩ ∧ 0 < config.ckbNodeDefaultTimeout.toNat ∧
      deadline ≤ store.now + 1000 * config.ckbNodeDefaultTimeout.toNat

theorem VersionRecord.fade {earlier later : Store} {keys : Set String} {key : String}
    (record : VersionRecord config earlier key) (fades : earlier.FadesOutside keys later)
    (outside : key ∉ keys) : VersionRecord config later key := by
  intro entry found
  obtain ⟨version, deadline, same, positive, limit⟩ :=
    record entry (fades.older key outside entry found)
  have clock := fades.clock
  exact ⟨version, deadline, same, positive, by omega⟩

theorem VersionRecord.of_older {earlier later : Store} {key : String}
    (record : VersionRecord config earlier key) (clock : earlier.now ≤ later.now)
    (older : ∀ entry, later.find? key = some entry → earlier.find? key = some entry) :
    VersionRecord config later key := by
  intro entry found
  obtain ⟨version, deadline, same, positive, limit⟩ := record entry (older entry found)
  exact ⟨version, deadline, same, positive, by omega⟩

theorem versionRecord_of_placed {earlier later : Store} {key version : String}
    (placed : ∀ kept, later.find? key = some kept → ∃ deadline,
      SetBetween earlier later config.ckbNodeDefaultTimeout.toNat deadline ∧
        kept = ⟨.text version, some deadline⟩) : VersionRecord config later key := by
  intro entry found
  obtain ⟨deadline, between, same⟩ := placed entry found
  exact ⟨version, deadline, same, between.1, between.2.2⟩

theorem VersionRecord.moved {earlier later : Store} {key : String} {entry : Entry}
    (record : VersionRecord config earlier key) (found : earlier.find? key = some entry)
    (moved : ∀ kept, later.find? key = some kept → ∃ deadline,
      SetBetween earlier later config.ckbNodeDefaultTimeout.toNat deadline ∧
        kept = { entry with deadline := some deadline }) : VersionRecord config later key := by
  obtain ⟨version, _, rfl, _⟩ := record entry found
  exact versionRecord_of_placed moved

structure StatusRecords (config : Config) (peerId : String) (store : Store) : Prop where
  online : VersionRecord config store (KeyFormat.onlinePeer.key peerId)
  online2 : VersionRecord config store (KeyFormat.online2Peer.key peerId)

theorem StatusRecords.turn {message : Message} (records : StatusRecords config peerId before.redis)
    (completes : HandlerCompletes before (handle config serde message) trace after ()) :
    StatusRecords config peerId after.redis := by
  have frame := (onlyWrites_handle message).frame completes
  have untouched : peerId ≠ message.subject ∨
      .onlinePeer ∉ message.formats ∧ .online2Peer ∉ message.formats →
      StatusRecords config peerId after.redis := by
    intro outside
    refine ⟨records.online.fade frame ?_, records.online2.fade frame ?_⟩
    all_goals
      rw [mem_recordKeys]
      intro given
      obtain ⟨member, same⟩ := given
      rcases outside with different | ⟨notOnline, notOnline2⟩
      · exact different same
      · first | exact notOnline member | exact notOnline2 member
  by_cases subject : peerId = message.subject
  · cases message with
    | online peer =>
      subst subject
      cases (handleOnline_turn completes).1 with
      | refreshed found read moved other =>
        exact ⟨records.online.moved found moved, records.online2.of_older frame.clock other⟩
      | external isEx missing placed =>
        refine ⟨fun entry found => ?_, versionRecord_of_placed placed⟩
        rw [Message.subject, missing] at found
        cases found
      | direct isEx stored placed other =>
        exact ⟨versionRecord_of_placed placed, records.online2.of_older frame.clock other⟩
    | unknown peer =>
      subst subject
      have online2 := records.online2.fade frame (by simp [Message.formats])
      cases handleUnknown_turn completes with
      | kept found moved _ _ => exact ⟨records.online.moved found moved, online2⟩
      | ignored missing narrow _ => exact ⟨records.online.fade narrow (by simp), online2⟩
      | promoted missing cleared narrow _ _ => exact ⟨records.online.fade narrow (by simp), online2⟩
    | reachable peer => exact untouched (.inr (by simp [Message.formats]))
    | tick => exact untouched (.inr (by simp [Message.formats]))
  · exact untouched (.inl subject)

/-- The online records of every peer stay of this shape in every run. -/
theorem run_statusRecords (run : MarciRun config serde (.initial now) turns after)
    (peerId : String) : StatusRecords config peerId after.redis := by
  apply run.keeps (fun _ state => StatusRecords config peerId state.redis)
  · constructor <;>
    · intro entry found
      simp [State.initial] at found
  · intro turns before message trace after _ records completes
    exact records.turn completes

end CkbDiscovery.Marci
